/-!
# Base64

Three bytes are four symbols of the standard alphabet.  One or two bytes at the
end are padded to four symbols with `=`, and the bits that the last symbol does
not need are zero; the reader refuses everything else, so each byte string has
exactly one encoding.
-/

namespace PageQuery.Text.Base64

/-- The symbol of a six-bit number. -/
def symbol (n : Nat) : Char :=
  if n < 26 then Char.ofNat (n + 65)
  else if n < 52 then Char.ofNat (n + 71)
  else if n < 62 then Char.ofNat (n - 4)
  else if n = 62 then '+' else '/'

/-- The six-bit number of a symbol. -/
def sextet? (c : Char) : Option Nat :=
  let n := c.toNat
  if 65 ≤ n ∧ n ≤ 90 then some (n - 65)
  else if 97 ≤ n ∧ n ≤ 122 then some (n - 71)
  else if 48 ≤ n ∧ n ≤ 57 then some (n + 4)
  else if c = '+' then some 62
  else if c = '/' then some 63
  else none

def encode : List UInt8 → List Char
  | [] => []
  | [a] =>
    let n := a.toNat * 16
    [symbol (n / 64), symbol (n % 64), '=', '=']
  | [a, b] =>
    let n := (a.toNat * 256 + b.toNat) * 4
    [symbol (n / 4096), symbol (n / 64 % 64), symbol (n % 64), '=']
  | a :: b :: c :: rest =>
    let n := (a.toNat * 256 + b.toNat) * 256 + c.toNat
    symbol (n / 262144) :: symbol (n / 4096 % 64) :: symbol (n / 64 % 64) ::
      symbol (n % 64) :: encode rest

/-- The bytes of the last four symbols, which may be padded. -/
def decodeLast? (w x y z : Char) : Option (List UInt8) := do
  let w ← sextet? w
  let x ← sextet? x
  if y = '=' then
    if z = '=' ∧ x % 16 = 0 then some [UInt8.ofNat (w * 4 + x / 16)] else none
  else
    let y ← sextet? y
    let n := (w * 64 + x) * 64 + y
    if z = '=' then
      if y % 4 = 0 then some [UInt8.ofNat (n / 1024), UInt8.ofNat (n / 4)] else none
    else
      let z ← sextet? z
      let n := n * 64 + z
      some [UInt8.ofNat (n / 65536), UInt8.ofNat (n / 256), UInt8.ofNat n]

def decode? : List Char → Option (List UInt8)
  | [] => some []
  | [w, x, y, z] => decodeLast? w x y z
  | w :: x :: y :: z :: rest => do
    let w ← sextet? w
    let x ← sextet? x
    let y ← sextet? y
    let z ← sextet? z
    let n := ((w * 64 + x) * 64 + y) * 64 + z
    let bytes ← decode? rest
    some (UInt8.ofNat (n / 65536) :: UInt8.ofNat (n / 256) :: UInt8.ofNat n :: bytes)
  | _ => none

end PageQuery.Text.Base64
