/-!
# Decimal numerals

Placeholders, local names and counts are written as decimal numerals.  A numeral
is filled from the right into a fixed number of places; twenty places hold every
64-bit number.  `decimal` is the numeral of any natural number, and reading it
back with `ofDecimal` gives the number again.
-/

namespace PageQuery.Numeral

/-- Writes the digits of `n` from the right, in front of `done`, into at most
`room` places.  There is no answer when the digits need more room. -/
def fill : (room n : Nat) → (done : List Char) → Option (List Char)
  | 0, _, _ => none
  | room + 1, n, done =>
    let digits := Nat.digitChar (n % 10) :: done
    if n / 10 = 0 then some digits else fill room (n / 10) digits

/-- The number of places that a numeral is filled into. -/
def places : Nat := 20

/-- The decimal numeral of `n`, without leading zeros. -/
def decimal (n : Nat) : List Char :=
  (fill places n []).getD (Nat.toDigits 10 n)

/-- The number that a run of digits stands for. -/
def ofDecimal (digits : List Char) : Nat :=
  digits.foldl (fun n c => 10 * n + (c.toNat - '0'.toNat)) 0

/-- The numeral of an integer: a minus sign stands in front of the negative ones. -/
def signed (n : Int) : List Char :=
  if n < 0 then '-' :: decimal n.natAbs else decimal n.natAbs

/-- The numeral of `n` as text. -/
def text (n : Nat) : String := String.ofList (decimal n)

end PageQuery.Numeral
